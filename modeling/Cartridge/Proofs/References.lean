/-
This file proves what the references of routines are: those that the instructions of trusted
routines make, in strictly ascending order of their sources as soon as instructions at one
offset agree on address and flow. The order of references is linear and begins with the
source, so sorting puts the references of one source side by side; if these are the same
reference, one of them stays.
-/

import Cartridge.Analysis
import Cartridge.Proofs.Ascending

namespace Cartridge.Reference

/-! ### The order of references -/

theorem precedes_iff {first second : Reference} : first.precedes second = true ↔
    first.source < second.source ∨ first.source = second.source ∧
      (first.target < second.target ∨ first.target = second.target ∧
        (kindRank first.kind < kindRank second.kind ∨ kindRank first.kind = kindRank second.kind ∧
          (first.sourceAddress.toNat < second.sourceAddress.toNat ∨
            first.sourceAddress.toNat = second.sourceAddress.toNat ∧
              first.targetAddress.toNat ≤ second.targetAddress.toNat))) := by
  simp only [precedes, order, Ordering.isLE_then_iff_or, Nat.compare_eq_lt, Nat.compare_eq_eq,
    Nat.isLE_compare]

theorem precedes_trans (first second third : Reference) (before : first.precedes second = true)
    (after : second.precedes third = true) : first.precedes third = true := by
  rw [precedes_iff] at before after ⊢
  omega

theorem precedes_total (first second : Reference) :
    (first.precedes second || second.precedes first) = true := by
  rw [Bool.or_eq_true, precedes_iff, precedes_iff]
  omega

theorem source_le_of_precedes {first second : Reference} (before : first.precedes second = true) :
    first.source ≤ second.source := by
  rw [precedes_iff] at before
  omega

/-! ### The references of instructions -/

/-- How control leaves the instruction that makes a reference. -/
def flow (reference : Reference) : Flow :=
  match reference.kind with
  | .call => .call (some reference.targetAddress)
  | .jump => .jump (some reference.targetAddress)

theorem ofInstruction?_eq_some_iff {wiring : Wiring} {instruction : Instruction}
    {reference : Reference} :
    ofInstruction? wiring instruction = some reference ↔
      instruction.offset = reference.source ∧ instruction.address = reference.sourceAddress ∧
        instruction.flow = reference.flow ∧
        wiring.offset? reference.targetAddress = some reference.target := by
  constructor
  · intro made
    unfold ofInstruction? at made
    split at made
    · rename_i leaves
      obtain ⟨target, found, rfl⟩ := Option.map_eq_some_iff.mp made
      exact ⟨rfl, rfl, leaves, found⟩
    · rename_i leaves
      obtain ⟨target, found, rfl⟩ := Option.map_eq_some_iff.mp made
      exact ⟨rfl, rfl, leaves, found⟩
    · exact nomatch made
  · obtain ⟨source, target, kind, sourceAddress, targetAddress⟩ := reference
    rintro ⟨rfl, rfl, leaves, found⟩
    cases kind with
    | call =>
      rw [ofInstruction?, show instruction.flow = .call (some targetAddress) from leaves]
      exact Option.map_eq_some_iff.mpr ⟨target, found, rfl⟩
    | jump =>
      rw [ofInstruction?, show instruction.flow = .jump (some targetAddress) from leaves]
      exact Option.map_eq_some_iff.mpr ⟨target, found, rfl⟩

/-- A reference is made by an instruction of a routine that can be trusted. -/
theorem mem_ofRoutines {wiring : Wiring} {routines : List Routine} {reference : Reference} :
    reference ∈ ofRoutines wiring routines ↔
      ∃ routine ∈ routines, routine.ending.isConfident = true ∧
        ∃ instruction ∈ routine.instructions,
          ofInstruction? wiring instruction = some reference := by
  rw [ofRoutines, mem_eraseReps, List.mem_mergeSort, List.mem_flatMap]
  refine exists_congr fun routine => ?_
  rw [List.mem_filter, List.mem_filterMap, and_assoc]

/-- Instructions that agree on offset, address and flow make the same reference. -/
theorem eq_of_ofInstruction? {wiring : Wiring} {first second : Instruction}
    {one other : Reference} (madeOne : ofInstruction? wiring first = some one)
    (madeOther : ofInstruction? wiring second = some other) (here : first.offset = second.offset)
    (address : first.address = second.address) (flow : first.flow = second.flow) :
    one = other := by
  refine Option.some.inj (madeOne.symm.trans (Eq.trans ?_ madeOther))
  rw [ofInstruction?, ofInstruction?, here, address, flow]

/-- No two references have one source, if instructions at one offset agree on address and
flow. -/
theorem pairwise_ofRoutines {wiring : Wiring} {routines : List Routine}
    (agree : ∀ first ∈ routines.flatMap Routine.instructions,
      ∀ second ∈ routines.flatMap Routine.instructions, first.offset = second.offset →
        first.address = second.address ∧ first.flow = second.flow) :
    (ofRoutines wiring routines).Pairwise fun first second => first.source < second.source := by
  have made : ∀ reference ∈ ofRoutines wiring routines,
      ∃ instruction ∈ routines.flatMap Routine.instructions,
        ofInstruction? wiring instruction = some reference := by
    intro reference member
    obtain ⟨routine, listed, -, instruction, held, makes⟩ := mem_ofRoutines.mp member
    exact ⟨instruction, List.mem_flatMap.mpr ⟨routine, listed, held⟩, makes⟩
  refine pairwise_lt_eraseReps _ ?_ ?_
  · exact (List.pairwise_mergeSort precedes_trans precedes_total _).imp source_le_of_precedes
  · intro one member other memberOther same
    obtain ⟨first, held, makes⟩ := made one ((mem_eraseReps _).mpr member)
    obtain ⟨second, heldOther, makesOther⟩ := made other ((mem_eraseReps _).mpr memberOther)
    have here : first.offset = second.offset := by
      rw [(ofInstruction?_eq_some_iff.mp makes).1, (ofInstruction?_eq_some_iff.mp makesOther).1,
        same]
    obtain ⟨address, flow⟩ := agree first held second heldOther here
    exact eq_of_ofInstruction? makes makesOther here address flow

end Cartridge.Reference
