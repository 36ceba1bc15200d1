/-
This file takes apart an analysis along the flow of control: the scope in which it traces,
the survey it makes, and the traces that the survey merges. The scores of the windows enter
only through the windows that they choose, so they are left open here: what is proved holds
whatever the scores are. The routines of the analysis are those that the merged traces
yield.
-/

import Cartridge.Proofs.Routine
import Cartridge.Proofs.Survey.Harvest
import Cartridge.Proofs.Survey.Placement
import Cartridge.Proofs.Transfers

namespace Cartridge

namespace Analysis

/-! ### The parts of an analysis -/

/-- The image with the layout that an analysis settles on. -/
def board (options : Options) (image : Image) : Board :=
  ⟨(Profile.read options.layout image).layout, image⟩

/-- Where an analysis traces entries and how far. -/
def scope (options : Options) (image : Image) : Scope :=
  ⟨board options image, effectiveRange options (board options image).wiring,
    options.maxInstructions⟩

/-- The survey before any code is decoded. -/
def begun (options : Options) (image : Image) : Survey :=
  { issues := (initialIssues options (Profile.read options.layout image)
      (board options image).wiring).toArray
    events := (initialEvents (Profile.read options.layout image)
      (board options image).wiring).toArray }

/-- The survey of an analysis whose windows have the given scores. -/
def survey (options : Options) (image : Image) (regions : List Region) : Survey :=
  (begun options image).run (scope options image) options.instructionBudget options.entryPoints
    (seededHandlers options (Profile.read options.layout image)) (codeWindows options regions)

/-- The traces that this survey merges, in order. -/
def merged (options : Options) (image : Image) (regions : List Region) : List Trace :=
  (begun options image).mergedInRun (scope options image) options.instructionBudget
    options.entryPoints (seededHandlers options (Profile.read options.layout image))
    (codeWindows options regions)

/-- The analysis along the flow of control of an image whose windows have the given scores. -/
def recursive (options : Options) (image : Image) (regions : List Region) : Analysis :=
  assemble (Profile.read options.layout image) (board options image) .recursive regions
    (survey options image regions) []

/-- The scores of the windows of an image. -/
def scores (options : Options) (image : Image) : List Region :=
  Region.classify options.weights options.minRegionConfidence options.windowSize image
    (effectiveRange options (board options image).wiring)

theorem run_of_recursive {options : Options} (strategy : options.strategy = .recursive)
    (image : Image) : run options image = recursive options image (scores options image) := by
  rw [run, strategy]
  rfl

theorem run_of_linear {options : Options} (strategy : options.strategy = .linear)
    (image : Image) : run options image =
      assemble (Profile.read options.layout image) (board options image) .linear
        (scores options image)
        { begun options image with
          decoded := ((board options image).listing
            (effectiveRange options (board options image).wiring) {}).length }
        ((board options image).listing
          (effectiveRange options (board options image).wiring) {}) := by
  rw [run, strategy]
  rfl

theorem routines_run_of_linear {options : Options} (strategy : options.strategy = .linear)
    (image : Image) : (run options image).routines = [] := by
  rw [run_of_linear strategy]
  show (List.mergeSort [] _).map Prod.fst = []
  rw [List.mergeSort_nil, List.map_nil]

/-- Only an analysis along the flow of control lists routines. -/
theorem strategy_of_mem_routines {options : Options} {image : Image} {routine : Routine}
    (listed : routine ∈ (run options image).routines) : options.strategy = .recursive := by
  cases strategy : options.strategy with
  | linear =>
    rw [routines_run_of_linear strategy] at listed
    exact absurd listed List.not_mem_nil
  | recursive => rfl

/-! ### The last stage -/

variable (options : Options) (image : Image) (regions : List Region)

theorem placed_survey : Stage.Placed (scope options image)
    ⟨survey options image regions, [], merged options image regions⟩ :=
  (Stage.course_run _ _ _ _ _ _).placed (Stage.Placed.fresh _ _)

theorem harvested_survey : Stage.Harvested (scope options image)
    ⟨survey options image regions, [], merged options image regions⟩ :=
  (Stage.course_run _ _ _ _ _ _).harvested (Stage.Harvested.fresh _ _)

theorem queue_survey : (survey options image regions).queue = [] :=
  Survey.queue_run (Stage.Placed.fresh _ _) _ _ _

/-! ### Routines -/

theorem routines_survey : (survey options image regions).routines.toList =
    (merged options image regions).filterMap Trace.yield? :=
  (harvested_survey options image regions).routines

/-- The routines of an analysis are those of its survey, which come in the order of merging. -/
theorem routines_perm_survey : (recursive options image regions).routines.Perm
    ((survey options image regions).routines.toList.map Prod.fst) :=
  (List.mergeSort_perm _ _).map _

theorem routines_perm : (recursive options image regions).routines.Perm
    (((merged options image regions).filterMap Trace.yield?).map Prod.fst) := by
  rw [← routines_survey]
  exact routines_perm_survey options image regions

variable {options : Options} {image : Image} {regions : List Region}

theorem mem_routines_of_survey {found : Routine × List Nat}
    (recorded : found ∈ (survey options image regions).routines.toList) :
    found.1 ∈ (recursive options image regions).routines :=
  (routines_perm_survey options image regions).mem_iff.mpr (List.mem_map_of_mem recorded)

theorem mem_routines {routine : Routine} :
    routine ∈ (recursive options image regions).routines ↔
      ∃ trace ∈ merged options image regions,
        trace.isDoubtful = false ∧ trace.routine? = some routine := by
  rw [(routines_perm options image regions).mem_iff, List.mem_map]
  constructor
  · rintro ⟨found, member, rfl⟩
    obtain ⟨trace, taken, yields⟩ := List.mem_filterMap.mp member
    obtain ⟨certain, traced, -⟩ := Trace.yield?_eq_some_iff.mp yields
    exact ⟨trace, taken, certain, traced⟩
  · rintro ⟨trace, taken, certain, traced⟩
    refine ⟨(routine, trace.labels), List.mem_filterMap.mpr ⟨trace, taken, ?_⟩, rfl⟩
    exact Trace.yield?_eq_some_iff.mpr ⟨certain, traced, rfl⟩

/-- Only entries of the range are traced and merged. -/
theorem contains_of_mem_merged {trace : Trace} (member : trace ∈ merged options image regions) :
    (scope options image).range.contains trace.entry.offset = true := by
  have placed := placed_survey options image regions
  refine placed.inside (placed.marked.mpr ?_)
  exact List.mem_append_left _ (List.mem_append_right _ (List.mem_map_of_mem member))

/-- A routine of any analysis is the routine of a trace of an entry inside the range. -/
theorem exists_trace_of_mem_run {routine : Routine}
    (listed : routine ∈ (run options image).routines) :
    ∃ trace : Trace, trace.Taken (scope options image) ∧ trace.routine? = some routine ∧
      (scope options image).range.contains trace.entry.offset = true := by
  rw [run_of_recursive (strategy_of_mem_routines listed)] at listed
  obtain ⟨trace, member, -, traced⟩ := mem_routines.mp listed
  exact ⟨trace, (harvested_survey options image _).taken trace member, traced,
    contains_of_mem_merged member⟩

end Analysis

end Cartridge
