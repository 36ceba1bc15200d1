/-
This file puts the guarded parts together and proves that an analysis never fails: for every image
whose length fits in 63 bits and all options, checked or not, the guarded analysis gives what the
analysis gives, and so does the guarded listing of any span.
-/

import Cartridge.Proofs.Analysis.Soundness
import Cartridge.Proofs.Guarded.Listing
import Cartridge.Proofs.Guarded.Profile
import Cartridge.Proofs.Guarded.Region
import Cartridge.Proofs.Guarded.Survey

namespace Cartridge

namespace Guarded

/-! ### Putting together -/

/-- Names the branch targets of a routine and looks up the references that it makes. -/
def file (board : Board) (found : Routine × List Nat) : Guarded Unit := do
  check (fun offset => discard (address? board.layout offset)) found.2
  check (fun instruction => lookUp board.wiring instruction.flow) found.1.instructions

/-- Puts together what a survey found, or a listing, guarded. -/
def assemble (profile : Profile) (board : Board) (strategy : Strategy) (regions : List Region)
    (survey : Survey) (listing : List Instruction) : Guarded Analysis := do
  check (file board) (Analysis.inOrder survey)
  return Analysis.assemble profile board strategy regions survey listing

theorem file_eq (board : Board) (found : Routine × List Nat) : file board found = .ok () := by
  rw [file, bind_eq (check_eq fun offset _ => discard_eq ⟨_, address?_eq board.layout offset⟩),
    check_eq fun instruction _ => lookUp_eq _ _]

theorem assemble_eq (profile : Profile) (board : Board) (strategy : Strategy)
    (regions : List Region) (survey : Survey) (listing : List Instruction) :
    assemble profile board strategy regions survey listing =
      .ok (Analysis.assemble profile board strategy regions survey listing) := by
  rw [assemble, bind_eq (check_eq fun found _ => file_eq board found)]
  rfl

/-! ### Analyzing -/

/-- The number of bytes without an address, guarded. -/
def unmapped (wiring : Wiring) : Guarded Unit :=
  if wiring.mappedSize < wiring.length then discard (sub wiring.length wiring.mappedSize)
  else return ()

theorem unmapped_eq (wiring : Wiring) : unmapped wiring = .ok () := by
  rw [unmapped]
  split
  · exact discard_eq ⟨_, sub_eq (Nat.min_le_left _ _)⟩
  · rfl

/-- Follows the flow of control through an image and puts together what was found, guarded. -/
def recursive (options : Options) (profile : Profile) (scope : Scope) (regions : List Region)
    (begun : Survey) : Guarded Analysis := do
  let windows ← codeWindows options regions
  let surveyed ← survey scope options.instructionBudget options.entryPoints
    (Analysis.seededHandlers options profile) windows begun
  assemble profile scope.board .recursive regions surveyed []

/-- Lists an image from front to back and puts the listing together, guarded. -/
def linear (profile : Profile) (scope : Scope) (regions : List Region) (begun : Survey) :
    Guarded Analysis := do
  let listed ← listing scope.board scope.range {}
  assemble profile scope.board .linear regions { begun with decoded := listed.length } listed

/-- Analyzes an image, guarded. -/
def analyze (options : Options) (image : Image) : Guarded Analysis := do
  let profile ← profile options.layout image
  let board : Board := ⟨profile.layout, image⟩
  unmapped board.wiring
  let range := Analysis.effectiveRange options board.wiring
  let regions ← scores options image range
  let scope : Scope := ⟨board, range, options.maxInstructions⟩
  let begun : Survey :=
    { issues := (Analysis.initialIssues options profile board.wiring).toArray
      events := (Analysis.initialEvents profile board.wiring).toArray }
  match options.strategy with
  | .recursive => recursive options profile scope regions begun
  | .linear => linear profile scope regions begun

/-- The layout that the caller names, or the detected one, guarded. -/
def layout (named : Option Layout) (image : Image) : Guarded Layout :=
  match named with
  | some layout => return layout
  | none => do
    let detection ← detect image
    return detection.layout

/-- The instructions of a span from front to back, guarded. -/
def disassemble (named : Option Layout) (image : Image) (span : Span) (processor : Processor) :
    Guarded (List Instruction) := do
  let layout ← layout named image
  listing ⟨layout, image⟩ span processor

theorem layout_eq (named : Option Layout) (image : Image) :
    layout named image = .ok (named.getD (Detection.detect image).layout) := by
  cases named with
  | some layout => rfl
  | none =>
    rw [layout, bind_eq (detect_eq image)]
    rfl

theorem start_le_stop_of_mem_codeWindows {options : Options} {regions : List Region}
    {window : Span} (member : window ∈ Analysis.codeWindows options regions) :
    window.start ≤ window.stop := by
  unfold Analysis.codeWindows at member
  split at member
  · obtain ⟨region, -, rfl⟩ := List.mem_map.mp member
    exact Nat.le_add_right _ _
  · exact absurd member List.not_mem_nil

section

variable {image : Image} (size : image.size < 2 ^ 63)

include size

theorem fits_scope (options : Options) : (Analysis.scope options image).Fits := by
  refine ⟨size, ?_⟩
  have reach : (Analysis.board options image).layout.reach ≤ 0x7E0000 := by
    cases (Analysis.board options image).layout <;> decide
  exact Nat.le_trans (Nat.min_le_right _ _) (Nat.le_trans (Nat.min_le_right _ _) reach)

theorem recursive_eq (options : Options) :
    recursive options (Profile.read options.layout image) (Analysis.scope options image)
        (Analysis.scores options image) (Analysis.begun options image) =
      .ok (Analysis.recursive options image (Analysis.scores options image)) := by
  have short : ∀ region ∈ Analysis.scores options image, region.stop < 2 ^ 64 := by
    intro region member
    have inside := stop_le_of_mem_classify member
    omega
  have ready : (Analysis.begun options image).Ready (Analysis.scope options image)
      options.instructionBudget := .fresh _ _
  rw [recursive, bind_eq (codeWindows_eq short),
    bind_eq (survey_eq (fits_scope size options) ready _ _
      fun window => start_le_stop_of_mem_codeWindows), assemble_eq]
  rfl

/-- No operation of an analysis fails that has no result for some operands: no place, slice or
range is missed, no step is zero, and no number leaves its width, whatever the image and the
options. -/
theorem never_fails (options : Options) (window : options.windowSize < 2 ^ 64) :
    analyze options image = .ok (Analysis.run options image) ∧
      ∀ (named : Option Layout) (span : Span) (processor : Processor), processor.Shallow →
        disassemble named image span processor =
          .ok (Analysis.disassemble named image span processor) := by
  refine ⟨?_, fun named span processor shallow => ?_⟩
  · rw [analyze, bind_eq (profile_eq options.layout size)]
    simp only
    rw [bind_eq (unmapped_eq _), bind_eq (scores_eq size window _)]
    cases strategy : options.strategy with
    | recursive =>
      rw [Analysis.run_of_recursive strategy]
      exact recursive_eq size options
    | linear =>
      have empty : Processor.Shallow {} := ⟨Nat.zero_le _, Nat.zero_le _⟩
      rw [Analysis.run_of_linear strategy]
      simp only
      rw [linear, bind_eq (listing_eq size empty _), assemble_eq]
      rfl
  · rw [disassemble, bind_eq (layout_eq named image), listing_eq size shallow]
    rfl

end

theorem never_fails_branching : Analysis.branchingImage.size < 2 ^ 63 ∧
    Analysis.bareOptions.windowSize < 2 ^ 64 ∧ Processor.Shallow {} ∧
    analyze Analysis.bareOptions Analysis.branchingImage =
      .ok (Analysis.run Analysis.bareOptions Analysis.branchingImage) ∧
    disassemble none Analysis.branchingImage ⟨2, 9⟩ {} =
      .ok (Analysis.disassemble none Analysis.branchingImage ⟨2, 9⟩ {}) := by
  have size : Analysis.branchingImage.size < 2 ^ 63 := by decide
  have window : Analysis.bareOptions.windowSize < 2 ^ 64 := by decide
  have shallow : Processor.Shallow {} := ⟨Nat.zero_le _, Nat.zero_le _⟩
  obtain ⟨analyzed, listed⟩ := never_fails size Analysis.bareOptions window
  exact ⟨size, window, shallow, analyzed, listed none ⟨2, 9⟩ {} shallow⟩

end Guarded

end Cartridge
