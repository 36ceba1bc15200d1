/-
This file proves that an analysis overlooks no branch of a trusted routine that stays below
the limit on instructions. A branch to an address outside the image is listed as unmapped, a
branch out of the routine as a jump. Any other target has a name, as the start of a routine or
as a label, and it is settled: the routine goes on there, or it cannot.
-/

import Cartridge.Proofs.Analysis.Soundness
import Cartridge.Proofs.Ascending
import Cartridge.Proofs.Branches

namespace Cartridge

namespace Analysis

/-! ### Names -/

theorem mem_foldl_symbols {routines : List Routine} {symbols : Std.TreeMap Nat String}
    {offset : Nat} :
    offset ∈ routines.foldl (fun symbols routine => symbols.insert routine.start routine.name)
      symbols ↔ offset ∈ symbols ∨ ∃ routine ∈ routines, routine.start = offset := by
  induction routines generalizing symbols with
  | nil => simp
  | cons routine rest inductionHypothesis =>
    rw [List.foldl_cons, inductionHypothesis, Std.TreeMap.mem_insert, Nat.compare_eq_eq]
    simp only [List.mem_cons, exists_eq_or_imp, or_assoc, or_left_comm]

theorem mem_symbolsOf {routines : List Routine} {offset : Nat} :
    offset ∈ symbolsOf routines ↔ ∃ routine ∈ routines, routine.start = offset := by
  rw [symbolsOf, mem_foldl_symbols]
  simp

theorem mem_foldl_labels {layout : Layout} {symbols labels : Std.TreeMap Nat String}
    {offsets : List Nat} {offset : Nat} :
    offset ∈ offsets.foldl
      (fun labels offset =>
        if symbols.contains offset then labels
        else match layout.address? offset with
          | some address => labels.insert offset address.labelName
          | none => labels) labels ↔
      offset ∈ labels ∨
        offset ∈ offsets ∧ offset ∉ symbols ∧ (layout.address? offset).isSome := by
  induction offsets generalizing labels with
  | nil => simp
  | cons first rest inductionHypothesis =>
    rw [List.foldl_cons, inductionHypothesis, List.mem_cons]
    by_cases named : first ∈ symbols
    · rw [if_pos (Std.TreeMap.contains_iff_mem.mpr named)]
      grind
    · rw [if_neg (mt Std.TreeMap.contains_iff_mem.mp named)]
      cases found : layout.address? first with
      | none => grind
      | some address =>
        simp only [Std.TreeMap.mem_insert, Nat.compare_eq_eq]
        grind

/-- The labels are the targets that have an address and at which no routine starts. -/
theorem mem_labelsOf {layout : Layout} {symbols : Std.TreeMap Nat String} {offsets : List Nat}
    {offset : Nat} :
    offset ∈ labelsOf layout symbols offsets ↔
      offset ∈ offsets ∧ offset ∉ symbols ∧ (layout.address? offset).isSome := by
  refine mem_foldl_labels.trans ?_
  simp

/-- Every offset of the range has an address. -/
theorem address?_isSome_of_range {options : Options} {image : Image} {offset : Nat}
    (inside : (effectiveRange options (board options image).wiring).contains offset = true) :
    ((board options image).layout.address? offset).isSome := by
  have before := ((Span.contains_iff _ _).mp inside).2
  have mapped : offset < (board options image).wiring.mappedSize :=
    Nat.lt_of_lt_of_le before (Nat.min_le_right _ _)
  exact (Layout.address?_isSome_iff _ _).mpr (Nat.lt_of_lt_of_le mapped (Nat.min_le_right _ _))

variable {options : Options} {image : Image} {regions : List Region} {routine : Routine}

/-- A label of a recorded trace inside the range is a label of the analysis, or a routine
starts there. -/
theorem mem_labels_or_exists_start {found : Routine × List Nat}
    (recorded : found ∈ (survey options image regions).routines.toList) {offset : Nat}
    (member : offset ∈ found.2)
    (inside : (effectiveRange options (board options image).wiring).contains offset = true) :
    offset ∈ (recursive options image regions).labels ∨
      ∃ other ∈ (recursive options image regions).routines, other.start = offset := by
  by_cases named : ∃ other ∈ (recursive options image regions).routines, other.start = offset
  · exact Or.inr named
  · refine Or.inl (mem_labelsOf.mpr ⟨?_, mt mem_symbolsOf.mp named, ?_⟩)
    · exact List.mem_flatMap.mpr ⟨found, List.mem_mergeSort.mpr recorded, member⟩
    · exact address?_isSome_of_range inside

/-! ### Trusted routines -/

/-- A trusted routine is that of the trace of an entry of the range. -/
theorem exists_run_of_confident
    (listed : routine ∈ (recursive options image regions).routines)
    (trusted : routine.ending.isConfident = true) :
    ∃ entry, (Trace.run (scope options image) entry).routine? = some routine ∧
      (scope options image).range.contains entry.offset = true ∧
      (routine, (Trace.run (scope options image) entry).labels) ∈
        (survey options image regions).routines.toList := by
  obtain ⟨trace, member, certain, traced⟩ := mem_routines.mp listed
  obtain ⟨-, -, -, ending, -⟩ := Trace.routine?_eq_some traced
  rw [ending] at trusted
  have taken := (harvested_survey options image regions).taken trace member
  have whole := taken.eq_run_of_confident trusted
  refine ⟨trace.entry, whole ▸ traced, contains_of_mem_merged member, ?_⟩
  rw [← whole, routines_survey]
  exact List.mem_filterMap.mpr
    ⟨trace, member, Trace.yield?_eq_some_iff.mpr ⟨certain, traced, rfl⟩⟩

/-- Every branch of a trusted routine below the limit is unmapped, a jump, or leads to a named
target that is settled. -/
theorem branch_complete (listed : routine ∈ (run options image).routines)
    (trusted : routine.ending.isConfident = true)
    (short : routine.instructions.length < options.maxInstructions)
    {instruction : Instruction} (member : instruction ∈ routine.instructions)
    {address : Address}
    (branches : instruction.flow = .branch address ∨ instruction.flow = .goto address) :
    ((board options image).wiring.offset? address = none → address ∈ routine.unmapped) ∧
    ∀ target, (board options image).wiring.offset? address = some target →
      (target < routine.start ∨
          (effectiveRange options (board options image).wiring).contains target = false →
        address ∈ routine.jumps) ∧
      (routine.start ≤ target →
          (effectiveRange options (board options image).wiring).contains target = true →
        (target ∈ (run options image).labels ∨
          ∃ other ∈ (run options image).routines, other.start = target) ∧
        (scope options image).Settles routine.start routine.entry routine.instructions target) := by
  cases strategy : options.strategy with
  | linear =>
    rw [routines_run_of_linear strategy] at listed
    exact absurd listed List.not_mem_nil
  | recursive =>
    rw [run_of_recursive strategy] at listed ⊢
    obtain ⟨entry, traced, inside, recorded⟩ := exists_run_of_confident listed trusted
    obtain ⟨first, -, rfl⟩ := Option.map_eq_some_iff.mp traced
    obtain ⟨offset, look⟩ := Tiling.mem_instructions.mp member
    have files := Trace.keepsBranches_run trusted offset instruction address look branches
    have size : (Trace.run (scope options image) entry).tiling.instructions.length =
        (Trace.run (scope options image) entry).tiling.size := by
      rw [Tiling.instructions, List.length_map, Std.TreeMap.length_toList]
    simp only [Trace.entry_run] at recorded ⊢
    refine ⟨fun missing => mem_ascending.mpr (files.mem_unmapped missing), ?_⟩
    intro target found
    constructor
    · intro away
      refine mem_ascending.mpr (files.mem_jumps found ?_)
      rw [Trace.entry_run]
      exact Scope.leaves_iff.mpr away
    · intro notBefore inRange
      have label : target ∈ (Trace.run (scope options image) entry).labels := by
        refine files.mem_labels found ?_
        rw [Trace.entry_run]
        exact Scope.leaves_eq_false_iff.mpr ⟨notBefore, inRange⟩
      refine ⟨mem_labels_or_exists_start recorded label inRange, ?_⟩
      exact Trace.settles_run inside trusted (size ▸ short) label

set_option maxRecDepth 100000 in
theorem branch_complete_branching : ∃ routine,
    (run bareOptions branchingImage).routines = [routine] ∧
      (10 ∈ (run bareOptions branchingImage).labels ∨
        ∃ other ∈ (run bareOptions branchingImage).routines, other.start = 10) ∧
      (scope bareOptions branchingImage).Settles routine.start routine.entry
        routine.instructions 10 := by
  have found : (run bareOptions branchingImage).routines.map (fun routine =>
      (routine.start, routine.ending.isConfident, routine.instructions.length,
        routine.instructions.any fun instruction =>
          decide (instruction.flow = .branch ⟨0x00, 0x800A⟩))) = [(0, true, 7, true)] := by
    decide +kernel
  obtain ⟨routine, list, parts⟩ := List.map_eq_singleton_iff.mp found
  obtain ⟨start, trusted, length, branches⟩ : routine.start = 0 ∧
      routine.ending.isConfident = true ∧ routine.instructions.length = 7 ∧
        (routine.instructions.any fun instruction =>
          decide (instruction.flow = .branch ⟨0x00, 0x800A⟩)) = true := by
    simpa using parts
  obtain ⟨instruction, member, flow⟩ := List.any_eq_true.mp branches
  have complete := (branch_complete (list ▸ List.mem_singleton_self routine) trusted
    (length ▸ by decide) member (Or.inl (of_decide_eq_true flow))).2 10 (by decide)
  exact ⟨routine, list, complete.2 (start ▸ Nat.zero_le 10) (by decide)⟩

end Analysis

end Cartridge
